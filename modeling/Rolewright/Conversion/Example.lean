/-
# Worked conversions

Conversions that a generator is shown, in the order in which they are offered.
-/

namespace Rolewright

/-- A piece of a recipe and what it becomes in a role. -/
structure WorkedExample where
  recipe : String
  role : String
deriving DecidableEq, Repr

namespace WorkedExample

/-- Rows of text, none closed by a line break after the last. -/
def rows (rows : List String) : String :=
  String.intercalate "\n" rows

/-- The worked conversions. -/
def all : List WorkedExample := [
  ⟨rows ["package 'nginx' do", "  action :install", "end"],
    rows ["- name: Install nginx", "  ansible.builtin.package:", "    name: nginx",
      "    state: present"]⟩,
  ⟨rows ["template '/etc/nginx/nginx.conf' do", "  source 'nginx.conf.erb'", "  variables(",
      "    server_name: node['nginx']['server_name']", "  )",
      "  notifies :reload, 'service[nginx]'", "end"],
    rows ["# tasks/main.yml", "- name: Configure nginx", "  ansible.builtin.template:",
      "    src: nginx.conf.j2", "    dest: /etc/nginx/nginx.conf", "  vars:",
      "    server_name: \"\x7b\x7b nginx_server_name \x7d\x7d\"", "  notify: Reload nginx", "",
      "# handlers/main.yml", "- name: Reload nginx", "  ansible.builtin.service:",
      "    name: nginx", "    state: reloaded"]⟩,
  ⟨rows ["if platform_family?('debian')", "  package 'apt-transport-https'", "end"],
    rows ["- name: Install apt-transport-https", "  ansible.builtin.package:",
      "    name: apt-transport-https", "    state: present",
      "  when: ansible_facts['os_family'] == 'Debian'"]⟩,
  ⟨rows ["service 'nginx' do", "  action [:enable, :start]", "end"],
    rows ["- name: Enable and start nginx", "  ansible.builtin.service:", "    name: nginx",
      "    state: started", "    enabled: true"]⟩,
  ⟨rows ["directory '/var/www/html' do", "  owner 'www-data'", "  group 'www-data'",
      "  mode '0755'", "  recursive true", "  action :create", "end"],
    rows ["- name: Create web root", "  ansible.builtin.file:", "    path: /var/www/html",
      "    state: directory", "    owner: www-data", "    group: www-data", "    mode: '0755'",
      "    recurse: true"]⟩]

/-- The wording of the example with a number. -/
def text (number : Nat) (e : WorkedExample) : String :=
  "Example " ++ toString number ++ ":\nCHEF:\n\x60\x60\x60ruby\n" ++ e.recipe ++
    "\n\x60\x60\x60\nANSIBLE:\n\x60\x60\x60yaml\n" ++ e.role ++ "\n\x60\x60\x60\n\n"

end WorkedExample

end Rolewright
